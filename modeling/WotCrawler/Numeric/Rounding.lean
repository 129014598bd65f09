import Mathlib

/-! Rounding whole numbers to a number of significant binary digits, halves to the even neighbour. -/

namespace WotCrawler.Numeric

/-- The distance between the representable neighbours of a number. -/
def gap (digits number : Nat) : Nat := 2 ^ (number.log2 + 1 - digits)

/-- The upper neighbour is nearer, or as near and even. -/
def RoundsUp (digits number : Nat) : Prop :=
  gap digits number < 2 * (number % gap digits number) ∨
    (gap digits number = 2 * (number % gap digits number) ∧ number / gap digits number % 2 = 1)

instance RoundsUp.decidable (digits number : Nat) : Decidable (RoundsUp digits number) :=
  inferInstanceAs (Decidable (_ ∨ _))

def roundHalfEven (digits number : Nat) : Nat :=
  let down := number / gap digits number * gap digits number
  if RoundsUp digits number then down + gap digits number else down

variable {digits number : Nat}

theorem gap_pos (digits number : Nat) : 0 < gap digits number := Nat.two_pow_pos _

/-- A number that needs no more digits has neighbours at distance one. -/
theorem gap_eq_one (positive : 0 < digits) (few : number < 2 ^ digits) : gap digits number = 1 := by
  have short : number.log2 + 1 ≤ digits := by
    by_cases zero : number = 0
    · subst zero
      exact positive
    · exact (Nat.log2_lt zero).mpr few
  rw [gap, Nat.sub_eq_zero_of_le short, pow_zero]

/-- A number that rounds up lies strictly between its neighbours. -/
theorem RoundsUp.mod_pos (up : RoundsUp digits number) : 0 < number % gap digits number := by
  have positive := gap_pos digits number
  rcases up with nearer | ⟨half, _⟩ <;> omega

theorem roundHalfEven_of_up (up : RoundsUp digits number) :
    roundHalfEven digits number + number % gap digits number = number + gap digits number := by
  have split := Nat.div_add_mod' number (gap digits number)
  rw [roundHalfEven, if_pos up]
  omega

theorem roundHalfEven_of_not_up (down : ¬ RoundsUp digits number) :
    roundHalfEven digits number + number % gap digits number = number := by
  rw [roundHalfEven, if_neg down]
  exact Nat.div_add_mod' number (gap digits number)

/-- Rounding is exact at the representable numbers only. -/
theorem roundHalfEven_eq_self_iff : roundHalfEven digits number = number ↔ gap digits number ∣ number := by
  rw [Nat.dvd_iff_mod_eq_zero]
  have below := Nat.mod_lt number (gap_pos digits number)
  by_cases up : RoundsUp digits number
  · have moved := roundHalfEven_of_up up
    have between := up.mod_pos
    omega
  · have moved := roundHalfEven_of_not_up up
    omega

theorem lt_roundHalfEven_iff : number < roundHalfEven digits number ↔ RoundsUp digits number := by
  have below := Nat.mod_lt number (gap_pos digits number)
  by_cases up : RoundsUp digits number
  · have moved := roundHalfEven_of_up up
    exact iff_of_true (by omega) up
  · have moved := roundHalfEven_of_not_up up
    exact iff_of_false (by omega) up

/-- The last number before a representable one. -/
theorem gap_dvd_succ_iff : gap digits number ∣ number + 1 ↔ number % gap digits number + 1 = gap digits number := by
  have below := Nat.mod_lt number (gap_pos digits number)
  have split : number + 1 = number / gap digits number * gap digits number + (number % gap digits number + 1) := by
    rw [← Nat.add_assoc, Nat.div_add_mod']
  rw [split, Nat.dvd_add_right (Nat.dvd_mul_left _ _)]
  constructor
  · intro divides
    have within := Nat.le_of_dvd (Nat.succ_pos _) divides
    omega
  · intro same
    rw [same]

/-- Rounding up goes to the next number exactly if that one is representable. -/
theorem roundHalfEven_eq_succ_iff : roundHalfEven digits number = number + 1 ↔
    RoundsUp digits number ∧ gap digits number ∣ number + 1 := by
  rw [gap_dvd_succ_iff]
  by_cases up : RoundsUp digits number
  · have moved := roundHalfEven_of_up up
    rw [and_iff_right up]
    omega
  · have moved := roundHalfEven_of_not_up up
    exact iff_of_false (by omega) (fun both => up both.1)

/-- Rounding does not pass a power of two. -/
theorem roundHalfEven_le_two_pow (below : number < 2 ^ bits) : roundHalfEven digits number ≤ 2 ^ bits := by
  by_cases up : RoundsUp digits number
  · have nonzero : number ≠ 0 := by
      rintro rfl
      simpa using up.mod_pos
    have short : number.log2 < bits := (Nat.log2_lt nonzero).mpr below
    have divides : gap digits number ∣ 2 ^ bits := Nat.pow_dvd_pow 2 (by omega)
    obtain ⟨count, whole⟩ := divides
    have fewer : number / gap digits number < count := by
      rw [Nat.div_lt_iff_lt_mul (gap_pos digits number), Nat.mul_comm, ← whole]
      exact below
    rw [roundHalfEven, if_pos up, whole, Nat.mul_comm (gap digits number), ← Nat.succ_mul]
    exact Nat.mul_le_mul_right _ fewer
  · have moved := roundHalfEven_of_not_up up
    omega

end WotCrawler.Numeric
