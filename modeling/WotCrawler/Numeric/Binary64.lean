import Mathlib

/-! Arithmetic that keeps of each result only what a machine number holds, and the binary64 numbers. -/

namespace WotCrawler.Numeric

/-- What an arithmetic keeps of an exact result. -/
structure Rounding where
  keep : Rat → Rat
  monotone : Monotone keep
  kept : ∀ value, keep (keep value) = keep value
  zero : keep 0 = 0
  one : keep 1 = 1

instance : CoeFun Rounding fun _ => Rat → Rat := ⟨Rounding.keep⟩

/-- Exact arithmetic keeps everything. -/
def Rounding.exact : Rounding where
  keep := id
  monotone := monotone_id
  kept := fun _ => rfl
  zero := rfl
  one := rfl

namespace Rounding

variable {rounding : Rounding} {value bound : Rat}

theorem nonneg (positive : 0 ≤ value) : 0 ≤ rounding value := by
  have order := rounding.monotone positive
  rwa [rounding.zero] at order

theorem le_one (small : value ≤ 1) : rounding value ≤ 1 := by
  have order := rounding.monotone small
  rwa [rounding.one] at order

/-- A result below a machine number stays below it. -/
theorem le_of_le (held : rounding bound = bound) (below : value ≤ bound) : rounding value ≤ bound := by
  have order := rounding.monotone below
  rwa [held] at order

end Rounding

/-- The nearest whole number, and of two the even one. -/
def nearestEven (value : Rat) : Int :=
  if 1 / 2 < Int.fract value ∨ (Int.fract value = 1 / 2 ∧ ⌊value⌋ % 2 = 1) then ⌊value⌋ + 1 else ⌊value⌋

theorem nearestEven_intCast (whole : Int) : nearestEven whole = whole := by
  have half : ¬ ((1 : Rat) / 2 < 0 ∨ (0 : Rat) = 1 / 2 ∧ whole % 2 = 1) := by norm_num
  rw [nearestEven, Int.fract_intCast, Int.floor_intCast, if_neg half]

private theorem floor_le_nearestEven (value : Rat) : ⌊value⌋ ≤ nearestEven value := by
  unfold nearestEven
  split <;> omega

private theorem nearestEven_le_succ (value : Rat) : nearestEven value ≤ ⌊value⌋ + 1 := by
  unfold nearestEven
  split <;> omega

theorem nearestEven_mono : Monotone nearestEven := by
  intro left right order
  by_cases apart : ⌊left⌋ < ⌊right⌋
  · calc nearestEven left ≤ ⌊left⌋ + 1 := nearestEven_le_succ left
      _ ≤ ⌊right⌋ := apart
      _ ≤ nearestEven right := floor_le_nearestEven right
  · have level : ⌊left⌋ = ⌊right⌋ := le_antisymm (Int.floor_mono order) (not_lt.mp apart)
    have rest : Int.fract left ≤ Int.fract right := by
      rw [Int.fract, Int.fract, level]
      linarith
    unfold nearestEven
    rw [level]
    split_ifs with up stays stays
    · exact le_refl _
    · -- what the smaller one rounds up, the larger one does
      refine absurd ?_ stays
      rcases up with nearer | ⟨tie, odd⟩
      · exact .inl (nearer.trans_le rest)
      · rcases rest.lt_or_eq with more | same
        · exact .inl (tie ▸ more)
        · exact .inr ⟨same ▸ tie, odd⟩
    · omega
    · exact le_refl _

/-- The exponent of the last of 53 digits, which stops at that of the smallest subnormal. -/
def ulpExponent (value : Rat) : Int := max (Int.log 2 value - 52) (-1074)

/-- The binary64 number nearest to one that is not negative. -/
def binary64Magnitude (value : Rat) : Rat :=
  nearestEven (value / 2 ^ ulpExponent value) * 2 ^ ulpExponent value

/-- The nearest binary64 number, below the range in which it overflows. -/
def binary64 (value : Rat) : Rat := if 0 ≤ value then binary64Magnitude value else -binary64Magnitude (-value)

variable {value left right : Rat}

private theorem ulp_pos (exponent : Int) : (0 : Rat) < 2 ^ exponent := zpow_pos two_pos exponent

/-- A multiple of the last digit is kept. -/
private theorem magnitude_of_multiple (count : Int) (multiple : value = count * 2 ^ ulpExponent value) :
    binary64Magnitude value = value := by
  have whole : value / 2 ^ ulpExponent value = count := (div_eq_iff (ulp_pos _).ne').mpr multiple
  rw [binary64Magnitude, whole, nearestEven_intCast, ← multiple]

/-- A multiple of a digit not before the last one is kept. -/
private theorem magnitude_of_fits {count exponent : Int} (same : value = count * 2 ^ exponent)
    (fine : ulpExponent value ≤ exponent) : binary64Magnitude value = value := by
  obtain ⟨more, rfl⟩ := Int.le.dest fine
  refine magnitude_of_multiple (count * 2 ^ more) ?_
  rw [zpow_add₀ two_ne_zero, zpow_natCast] at same
  push_cast
  linarith

/-- So is every number of at most 53 digits. -/
theorem binary64Magnitude_eq_self {count : Nat} {exponent : Int} (digits : count ≤ 2 ^ 53) (normal : -1074 ≤ exponent)
    (same : value = count * 2 ^ exponent) : binary64Magnitude value = value := by
  rcases Nat.eq_zero_or_pos count with rfl | positive
  · rw [Nat.cast_zero, zero_mul] at same
    exact magnitude_of_multiple 0 (by rw [same]; simp)
  have some : 0 < value := same ▸ mul_pos (Nat.cast_pos.mpr positive) (ulp_pos exponent)
  rcases digits.lt_or_eq with fewer | rfl
  · have below : value < 2 ^ (exponent + 53) := by
      rw [same, zpow_add₀ two_ne_zero, mul_comm]
      exact mul_lt_mul_of_pos_left (by exact_mod_cast fewer) (ulp_pos exponent)
    have short : Int.log 2 value < exponent + 53 := (Int.lt_zpow_iff_log_lt one_lt_two some).mp (by exact_mod_cast below)
    have whole : value = ((count : Int) : Rat) * 2 ^ exponent := by exact_mod_cast same
    exact magnitude_of_fits whole (max_le (by omega) normal)
  · -- the power of two has one digit
    have power : value = ((2 : Nat) : Rat) ^ (exponent + 53) := by
      rw [same, zpow_add₀ (by norm_num), mul_comm]
      norm_num
    have whole : value = ((1 : Int) : Rat) * 2 ^ (exponent + 53) := by
      rw [power]
      norm_num
    refine magnitude_of_fits whole ?_
    rw [ulpExponent, power, Int.log_zpow one_lt_two]
    exact max_le (by omega) (by omega)

private theorem digits_le (positive : 0 ≤ value) :
    0 ≤ nearestEven (value / 2 ^ ulpExponent value) ∧ nearestEven (value / 2 ^ ulpExponent value) ≤ 2 ^ 53 := by
  have low : (0 : Rat) ≤ value / 2 ^ ulpExponent value := div_nonneg positive (ulp_pos _).le
  have high : value / 2 ^ ulpExponent value ≤ ((2 ^ 53 : Int) : Rat) := by
    rw [div_le_iff₀ (ulp_pos _)]
    calc value ≤ ((2 : Nat) : Rat) ^ (Int.log 2 value + 1) := (Int.lt_zpow_succ_log_self one_lt_two value).le
      _ ≤ (2 : Rat) ^ (53 + ulpExponent value) :=
        zpow_le_zpow_right₀ one_le_two (by unfold ulpExponent; omega)
      _ = ((2 ^ 53 : Int) : Rat) * 2 ^ ulpExponent value := by
        rw [zpow_add₀ two_ne_zero]
        norm_num
  constructor
  · have order := nearestEven_mono low
    rwa [← Int.cast_zero, nearestEven_intCast] at order
  · exact (nearestEven_mono high).trans (nearestEven_intCast _).le

private theorem magnitude_nonneg (positive : 0 ≤ value) : 0 ≤ binary64Magnitude value :=
  mul_nonneg (by exact_mod_cast (digits_le positive).1) (ulp_pos _).le

private theorem magnitude_kept (positive : 0 ≤ value) :
    binary64Magnitude (binary64Magnitude value) = binary64Magnitude value := by
  obtain ⟨low, high⟩ := digits_le positive
  obtain ⟨count, same⟩ := Int.eq_ofNat_of_zero_le low
  rw [same] at high
  have written : binary64Magnitude value = (count : Rat) * 2 ^ ulpExponent value := by
    rw [binary64Magnitude, same, Int.cast_natCast]
  exact binary64Magnitude_eq_self (by exact_mod_cast high) (le_max_right ..) written

/-- A power of two that is a multiple of the last digit bounds what a number below it is rounded to. -/
private theorem magnitude_le_power {exponent : Int} (below : value ≤ 2 ^ exponent) (fine : ulpExponent value ≤ exponent) :
    binary64Magnitude value ≤ 2 ^ exponent := by
  obtain ⟨more, rfl⟩ := Int.le.dest fine
  have scaled : value / 2 ^ ulpExponent value ≤ ((2 ^ more : Int) : Rat) := by
    rw [div_le_iff₀ (ulp_pos _), Int.cast_pow, Int.cast_ofNat, mul_comm, ← zpow_natCast, ← zpow_add₀ two_ne_zero]
    exact below
  rw [zpow_add₀ two_ne_zero, zpow_natCast, mul_comm, binary64Magnitude]
  refine mul_le_mul_of_nonneg_right ?_ (ulp_pos _).le
  exact_mod_cast (nearestEven_mono scaled).trans (nearestEven_intCast _).le

private theorem power_le_magnitude {exponent : Int} (above : 2 ^ exponent ≤ value) (fine : ulpExponent value ≤ exponent) :
    2 ^ exponent ≤ binary64Magnitude value := by
  obtain ⟨more, rfl⟩ := Int.le.dest fine
  have scaled : ((2 ^ more : Int) : Rat) ≤ value / 2 ^ ulpExponent value := by
    rw [le_div_iff₀ (ulp_pos _), Int.cast_pow, Int.cast_ofNat, mul_comm, ← zpow_natCast, ← zpow_add₀ two_ne_zero]
    exact above
  rw [zpow_add₀ two_ne_zero, zpow_natCast, mul_comm, binary64Magnitude]
  refine mul_le_mul_of_nonneg_right ?_ (ulp_pos _).le
  exact_mod_cast (nearestEven_intCast _).ge.trans (nearestEven_mono scaled)

/-- Below the exponent of the larger number the power of two between them is a machine number for both. -/
private theorem magnitude_mono (positive : 0 ≤ left) (order : left ≤ right) :
    binary64Magnitude left ≤ binary64Magnitude right := by
  rcases positive.eq_or_lt with rfl | some
  · rw [magnitude_of_multiple 0 (by simp)]
    exact magnitude_nonneg order
  have longer : Int.log 2 left ≤ Int.log 2 right := Int.log_mono_right some order
  by_cases level : ulpExponent left = ulpExponent right
  · unfold binary64Magnitude
    rw [level]
    refine mul_le_mul_of_nonneg_right (Int.cast_le.mpr (nearestEven_mono ?_)) (ulp_pos _).le
    exact div_le_div_of_nonneg_right order (ulp_pos _).le
  · have apart : Int.log 2 left + 1 ≤ Int.log 2 right ∧ ulpExponent left ≤ Int.log 2 right ∧
        ulpExponent right ≤ Int.log 2 right := by
      unfold ulpExponent at level ⊢
      omega
    obtain ⟨above, fine, coarse⟩ := apart
    have below : left ≤ 2 ^ Int.log 2 right := by
      calc left ≤ ((2 : Nat) : Rat) ^ (Int.log 2 left + 1) := (Int.lt_zpow_succ_log_self one_lt_two left).le
        _ ≤ (2 : Rat) ^ Int.log 2 right := zpow_le_zpow_right₀ one_le_two above
    have reached : (2 : Rat) ^ Int.log 2 right ≤ right := Int.zpow_log_le_self one_lt_two (some.trans_le order)
    calc binary64Magnitude left ≤ 2 ^ Int.log 2 right := magnitude_le_power below fine
      _ ≤ binary64Magnitude right := power_le_magnitude reached coarse

theorem binary64_of_nonneg (positive : 0 ≤ value) : binary64 value = binary64Magnitude value := if_pos positive

theorem binary64_mono : Monotone binary64 := by
  intro left right order
  unfold binary64
  split_ifs with above beyond beyond
  · exact magnitude_mono above order
  · exact absurd (above.trans order) beyond
  · have negative : 0 ≤ -left := by linarith
    exact (neg_nonpos.mpr (magnitude_nonneg negative)).trans (magnitude_nonneg beyond)
  · exact neg_le_neg (magnitude_mono (by linarith) (by linarith))

theorem binary64_kept (value : Rat) : binary64 (binary64 value) = binary64 value := by
  by_cases positive : 0 ≤ value
  · rw [binary64_of_nonneg positive, binary64_of_nonneg (magnitude_nonneg positive), magnitude_kept positive]
  · have negative : 0 ≤ -value := by linarith
    have stays := magnitude_kept negative
    unfold binary64
    rw [if_neg positive]
    split_ifs with none
    · have zero : binary64Magnitude (-value) = 0 := le_antisymm (by linarith) (magnitude_nonneg negative)
      rw [zero] at stays ⊢
      rw [neg_zero, stays]
    · rw [neg_neg, stays]

/-- A number of at most 53 digits is kept. -/
theorem binary64_eq_self {count : Nat} {exponent : Int} (digits : count ≤ 2 ^ 53) (normal : -1074 ≤ exponent)
    (same : value = count * 2 ^ exponent) : binary64 value = value := by
  have positive : 0 ≤ value := same ▸ mul_nonneg (Nat.cast_nonneg _) (ulp_pos exponent).le
  rw [binary64_of_nonneg positive, binary64Magnitude_eq_self digits normal same]

theorem binary64_natCast (count : Nat) (digits : count ≤ 2 ^ 53) : binary64 count = count := by
  have whole : (count : Rat) = count * 2 ^ (0 : Int) := by rw [zpow_zero, mul_one]
  exact binary64_eq_self digits (by omega) whole

/-- The arithmetic of `f64`. -/
def Rounding.binary64 : Rounding where
  keep := Numeric.binary64
  monotone := binary64_mono
  kept := binary64_kept
  zero := by exact_mod_cast binary64_natCast 0 (by omega)
  one := by exact_mod_cast binary64_natCast 1 (by omega)

/-- The smallest binary64 number above zero. -/
def smallest : Rat := 2 ^ (-1074 : Int)

theorem smallest_pos : 0 < smallest := ulp_pos _

/-- Every binary64 number is a multiple of the smallest one. -/
theorem binary64_multiple (value : Rat) : ∃ count : Int, binary64 value = count * smallest := by
  have whole (value : Rat) : ∃ count : Int, binary64Magnitude value = count * smallest := by
    obtain ⟨more, same⟩ := Int.le.dest (le_max_right (Int.log 2 value - 52) (-1074))
    refine ⟨nearestEven (value / 2 ^ ulpExponent value) * 2 ^ more, ?_⟩
    rw [binary64Magnitude, smallest, Int.cast_mul, Int.cast_pow, Int.cast_ofNat, mul_assoc, ← zpow_natCast, ← zpow_add₀ two_ne_zero,
      add_comm, same]
    rfl
  by_cases positive : 0 ≤ value
  · rw [binary64_of_nonneg positive]
    exact whole value
  · obtain ⟨count, same⟩ := whole (-value)
    refine ⟨-count, ?_⟩
    rw [binary64, if_neg positive, same, Int.cast_neg, neg_mul]

end WotCrawler.Numeric
