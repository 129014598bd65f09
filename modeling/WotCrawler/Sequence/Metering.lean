import Mathlib

/-! A meter that lets some instants through, one after another, and how many of them fit a window. -/

namespace WotCrawler.Sequence

variable {Meter : Type*}

/-- The meter grants the instants in their order, each as the one before left it. -/
inductive Grants (check : Meter → ℕ → Option Meter) (start : Meter) : List ℕ → Meter → Prop where
  | none : Grants check start [] start
  | grant (before : Grants check start instants meter) (token : check meter now = some taken) :
      Grants check start (instants ++ [now]) taken

/-- The instants of a window that is closed at both ends. -/
def windowed (start width : ℕ) (instants : List ℕ) : List ℕ :=
  instants.filter fun instant => start ≤ instant ∧ instant ≤ start + width

/-- No window of any width has more grants than its quota, wherever it starts. -/
def Metered (check : Meter → ℕ → Option Meter) (start : Meter) (quota : ℕ → ℕ) : Prop :=
  ∀ instants meter, Grants check start instants meter → instants.Pairwise (· ≤ ·) →
    ∀ origin width, (windowed origin width instants).length ≤ quota width

/-- The generic cell rate: each grant puts the next arrival a period off, and comes at most the tolerance early. -/
structure CellRate (check : Meter → ℕ → Option Meter) (valid : Meter → Prop) (arrival : Meter → ℕ)
    (period tolerance : ℕ) : Prop where
  keeps : ∀ meter now taken, valid meter → check meter now = some taken → valid taken
  timely : ∀ meter now taken, valid meter → check meter now = some taken → arrival meter ≤ now + tolerance
  spaced : ∀ meter now taken, valid meter → check meter now = some taken →
    max (arrival meter) now + period ≤ arrival taken

variable {check : Meter → ℕ → Option Meter} {start meter : Meter} {instants : List ℕ} {now origin width : ℕ}

theorem windowed_snoc : windowed origin width (instants ++ [now]) =
    windowed origin width instants ++ if origin ≤ now ∧ now ≤ origin + width then [now] else [] := by
  unfold windowed
  rw [List.filter_append]
  congr 1
  by_cases inside : origin ≤ now ∧ now ≤ origin + width
  · rw [if_pos inside, List.filter_singleton, decide_eq_true inside]
    rfl
  · rw [if_neg inside, List.filter_singleton, decide_eq_false inside]
    rfl

namespace CellRate

variable {valid : Meter → Prop} {arrival : Meter → ℕ} {period tolerance : ℕ}

theorem valid_of_grants (cell : CellRate check valid arrival period tolerance) (started : valid start)
    (grants : Grants check start instants meter) : valid meter := by
  induction grants with
  | none => exact started
  | grant before token ih => exact cell.keeps _ _ _ ih token

/-- After the grants of a window the next arrival is as many periods past its start. -/
theorem arrival_le (cell : CellRate check valid arrival period tolerance) (started : valid start)
    (grants : Grants check start instants meter) :
    windowed origin width instants = [] ∨
      origin + (windowed origin width instants).length * period ≤ arrival meter := by
  induction grants with
  | none => exact .inl rfl
  | @grant instants meter now taken before token ih =>
    have next := cell.spaced meter now taken (cell.valid_of_grants started before) token
    rw [windowed_snoc]
    by_cases inside : origin ≤ now ∧ now ≤ origin + width
    · right
      rw [if_pos inside, List.length_append, List.length_singleton, Nat.add_mul, Nat.one_mul]
      have own := le_max_left (arrival meter) now
      have since := le_max_right (arrival meter) now
      rcases ih with empty | earlier
      · rw [empty, List.length_nil, Nat.zero_mul]
        omega
      · omega
    · rw [if_neg inside, List.append_nil]
      have own := le_max_left (arrival meter) now
      exact ih.imp_right fun earlier => by omega

/-- In a window the tolerance is spent once, whatever came before it. -/
theorem metered (cell : CellRate check valid arrival period tolerance) (positive : 0 < period) (started : valid start) :
    Metered check start fun width => (width + tolerance) / period + 1 := by
  intro instants meter grants ordered origin width
  dsimp only
  induction grants with
  | none => exact Nat.zero_le _
  | @grant instants meter now taken before token ih =>
    obtain ⟨sorted, _, _⟩ := List.pairwise_append.mp ordered
    rw [windowed_snoc]
    by_cases inside : origin ≤ now ∧ now ≤ origin + width
    · rw [if_pos inside, List.length_append, List.length_singleton]
      apply Nat.succ_le_succ
      rcases cell.arrival_le started before with empty | earlier
      · rw [empty]
        exact Nat.zero_le _
      · rw [Nat.le_div_iff_mul_le positive]
        have due := cell.timely meter now taken (cell.valid_of_grants started before) token
        omega
    · rw [if_neg inside, List.append_nil]
      exact ih sorted

end CellRate

end WotCrawler.Sequence
