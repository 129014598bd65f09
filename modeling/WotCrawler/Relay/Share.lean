import WotCrawler.Relay.Admit

/-! The share of the permits that a relay's health leaves it. Calls that pass the check before any
of them is counted exceed it, up to the semaphore's own bound. -/

namespace WotCrawler.Relay

open Sequence

/-- The check was made on the counter as it is, and no call stands between its own check and its
increment. -/
def Prompt (run : AdmitRun) (seen : Nat) : Prop :=
  seen = run.inUse ∧ ∀ call ∈ run.calls, call.uncounted = false

variable {relay : String} {perRelayConcurrency : Nat} {score : Rat} {run after : AdmitRun}

variable {health other : RelayHealthRegistry}

/-- The permits depend on the score alone. -/
theorem permits_congr (same : health.score relay = other.score relay) :
    health.permits relay perRelayConcurrency = other.permits relay perRelayConcurrency := by
  rw [RelayHealthRegistry.permits, RelayHealthRegistry.permits, same]

theorem admits_iff (seen : Nat) : health.admits relay seen perRelayConcurrency = true ↔
    seen < health.permits relay perRelayConcurrency % 2 ^ 32 := decide_eq_true_iff

theorem AdmitRun.inFlight_le_passed (run : AdmitRun) : run.inFlight ≤ run.passed := by
  apply List.countP_mono_left
  intro call member fetches
  simp [AdmitCall.passed, fetches]

/-- The counter is exact, and the calls past the check are within the permits. -/
structure Orderly (relay : String) (perRelayConcurrency : Nat) (run : AdmitRun) : Prop where
  exact : run.inUse = run.inFlight
  within : run.passed ≤ run.health.permits relay perRelayConcurrency
  narrow : run.passed < 2 ^ 32

/-- A check that is made at once with its increment keeps to the permits. -/
theorem Orderly.step (orderly : Orderly relay perRelayConcurrency run) (scored : run.health.score relay = score)
    (step : AdmitStep relay perRelayConcurrency (· = score) Prompt run after) :
    Orderly relay perRelayConcurrency after := by
  have level : after.health.permits relay perRelayConcurrency = run.health.permits relay perRelayConcurrency :=
    permits_congr ((step.ranged scored).trans scored.symm)
  have bounds : after.passed ≤ after.health.permits relay perRelayConcurrency ∧ after.passed < 2 ^ 32 := by
    rw [level]
    rcases step.passed_le with fewer | ⟨more, _, seen, _, admits, ⟨current, counted⟩, _⟩
    · exact ⟨fewer.trans orderly.within, fewer.trans_lt orderly.narrow⟩
    · have room := (admits_iff seen).mp admits
      have same : run.passed = run.inFlight := by
        apply List.countP_congr
        intro call member
        simp [AdmitCall.passed, counted call member]
      have reduced := Nat.mod_le (run.health.permits relay perRelayConcurrency) (2 ^ 32)
      have bounded := Nat.mod_lt (run.health.permits relay perRelayConcurrency) (Nat.two_pow_pos 32)
      have exact := orderly.exact
      omega
  exact ⟨step.exact orderly.exact ((after.inFlight_le_passed).trans_lt bounds.2), bounds.1, bounds.2⟩

theorem Orderly.of_admitted (admitted : Admitted relay perRelayConcurrency (· = score) Prompt run) :
    Orderly relay perRelayConcurrency run ∧ run.health.score relay = score := by
  obtain ⟨health, scored, path⟩ := admitted
  have both : Orderly relay perRelayConcurrency run ∧ run.health.score relay = score := by
    induction path with
    | refl => exact ⟨⟨rfl, Nat.zero_le _, Nat.two_pow_pos 32⟩, scored⟩
    | tail _ step ih => exact ⟨ih.1.step ih.2 step, step.ranged ih.2⟩
  exact both

end WotCrawler.Relay
