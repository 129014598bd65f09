import WotCrawler.Numeric.Binary64
import WotCrawler.Relay.Fetch

/-! The health registry of the relays and its routing gate, in the arithmetic that the scores are kept in. -/

namespace WotCrawler.Relay

open Numeric

/-- The latency at which a success samples one half. -/
def latencyScaleSecs : Rat := 3

/-- How long a degraded relay is skipped before it is allowed one probe. -/
def probeInterval : Duration := secs 60

/-- The scores and last attempts of the relays the registry knows. The code's arithmetic is that
of `Rounding.binary64`. -/
structure RelayHealthRegistry where
  rounding : Rounding
  alpha : Rat
  scores : String → Option Rat
  lastProbe : String → Option Instant

namespace RelayHealthRegistry

def new (rounding : Rounding) (alpha : Rat) : RelayHealthRegistry where
  rounding := rounding
  alpha := alpha
  scores := fun _ => none
  lastProbe := fun _ => none

/-- An unknown relay is healthy. -/
def score (registry : RelayHealthRegistry) (relay : String) : Rat := (registry.scores relay).getD 1

/-- One step of the moving average. -/
def next (registry : RelayHealthRegistry) (sample prev : Rat) : Rat :=
  registry.rounding (registry.rounding (registry.alpha * sample) +
    registry.rounding (registry.rounding (1 - registry.alpha) * prev))

def update (registry : RelayHealthRegistry) (relay : String) (sample : Rat) : RelayHealthRegistry :=
  { registry with
    scores := Function.update registry.scores relay (some (registry.next sample (registry.score relay))) }

/-- `Duration::as_secs_f64`. -/
def asSecsF64 (registry : RelayHealthRegistry) (latency : Duration) : Rat :=
  registry.rounding (registry.rounding (latency / 1000000000 : Nat) +
    registry.rounding ((latency % 1000000000 : Nat) / 1000000000))

/-- The sample of a success: one for a fast one, a half at the latency scale. -/
def successSample (registry : RelayHealthRegistry) (latency : Duration) : Rat :=
  registry.rounding (1 / registry.rounding (1 + registry.rounding (registry.asSecsF64 latency / latencyScaleSecs)))

def recordSuccess (registry : RelayHealthRegistry) (relay : String) (latency : Duration) :
    RelayHealthRegistry :=
  registry.update relay (registry.successSample latency)

def recordTimeout (registry : RelayHealthRegistry) (relay : String) : RelayHealthRegistry :=
  registry.update relay 0

def recordConnectFailure (registry : RelayHealthRegistry) (relay : String) : RelayHealthRegistry :=
  registry.update relay 0

/-- A `rate-limited` notice degrades the score. -/
def recordRateLimited (registry : RelayHealthRegistry) (relay : String) : RelayHealthRegistry :=
  registry.update relay (registry.rounding (1 / 5))

/-- `mark_attempt`: the probe clock starts anew. -/
def markAttempt (registry : RelayHealthRegistry) (relay : String) (now : Instant) : RelayHealthRegistry :=
  { registry with lastProbe := Function.update registry.lastProbe relay (some now) }

/-- A relay that was never attempted, or not for the probe interval, is due. -/
def probeDue (registry : RelayHealthRegistry) (relay : String) (now : Instant) : Bool :=
  match registry.lastProbe relay with
  | none => true
  | some last => now - last ≥ probeInterval

/-- Whether a relay may be routed to now. -/
def routeAllowed (registry : RelayHealthRegistry) (relay : String) (threshold : Rat) (now : Instant) : Bool :=
  registry.score relay ≥ threshold || registry.probeDue relay now

/-- Decide the routing and, when it is allowed, mark the attempt. -/
def tryMarkAttempt (registry : RelayHealthRegistry) (relay : String) (threshold : Rat) (now : Instant) :
    Bool × RelayHealthRegistry :=
  if registry.score relay ≥ threshold then (true, registry.markAttempt relay now)
  else
    let due := registry.probeDue relay now
    (due, if due then registry.markAttempt relay now else registry)

/-- The outcome of a fetch, as the fan-out records it. -/
def recordFetchHealth (registry : RelayHealthRegistry) (relay : String) (latency : Duration)
    (outcome : Except RelayError (List Event)) : RelayHealthRegistry :=
  match outcome with
  | .ok _ => registry.recordSuccess relay latency
  | .error (.fetchTimeout _) => registry.recordTimeout relay
  | .error _ => registry.recordConnectFailure relay

/-- The fetches a relay is allowed at once: its share of the cap, and never none. A `usize`. The
product is taken exactly. -/
def permits (registry : RelayHealthRegistry) (relay : String) (perRelayConcurrency : Nat) : Nat :=
  max (min (round (perRelayConcurrency * registry.score relay)).toNat (2 ^ 64 - 1)) 1

/-- The comparison of the admission loop, which takes the permits for a `u32`. -/
def admits (registry : RelayHealthRegistry) (relay : String) (inUse perRelayConcurrency : Nat) : Bool :=
  inUse < registry.permits relay perRelayConcurrency % 2 ^ 32

/-- The one decision is the two it replaces: route if allowed, and then mark. -/
theorem tryMarkAttempt_eq (registry : RelayHealthRegistry) (relay : String) (threshold : Rat)
    (now : Instant) : registry.tryMarkAttempt relay threshold now =
      if registry.routeAllowed relay threshold now then (true, registry.markAttempt relay now)
      else (false, registry) := by
  unfold tryMarkAttempt routeAllowed
  by_cases healthy : registry.score relay ≥ threshold
  · simp [healthy]
  · cases due : registry.probeDue relay now <;> simp [healthy]

section Permits

variable {registry : RelayHealthRegistry} {relay : String} {perRelayConcurrency : Nat}

theorem one_le_permits (registry : RelayHealthRegistry) (relay : String) (perRelayConcurrency : Nat) :
    1 ≤ registry.permits relay perRelayConcurrency := le_max_right ..

/-- A score of at most one never raises the cap. -/
theorem permits_le (positive : 1 ≤ perRelayConcurrency) (score : registry.score relay ≤ 1) :
    registry.permits relay perRelayConcurrency ≤ perRelayConcurrency := by
  have share : (perRelayConcurrency * registry.score relay : Rat) ≤ perRelayConcurrency :=
    mul_le_of_le_one_right (Nat.cast_nonneg _) score
  have rounded : round (perRelayConcurrency * registry.score relay) ≤ (perRelayConcurrency : Int) := by
    calc round (perRelayConcurrency * registry.score relay)
        = ⌊(perRelayConcurrency * registry.score relay : Rat) + 1 / 2⌋ := round_eq _
      _ ≤ ⌊(perRelayConcurrency : Rat) + 1 / 2⌋ := Int.floor_mono (by linarith)
      _ = perRelayConcurrency := by rw [← round_eq, round_natCast]
  exact max_le ((min_le_left _ _).trans (by omega)) positive

/-- Where the cap is a `u32`, an idle relay is admitted at every score. -/
theorem admits_idle (positive : 1 ≤ perRelayConcurrency) (narrow : perRelayConcurrency < 2 ^ 32)
    (score : registry.score relay ≤ 1) : registry.admits relay 0 perRelayConcurrency = true := by
  have some := one_le_permits registry relay perRelayConcurrency
  have within := permits_le positive score
  rw [admits, Nat.mod_eq_of_lt (by omega)]
  exact decide_eq_true some

/-- Where the cap is wider, at the score that scales it to `2 ^ 32` nothing is ever admitted. -/
theorem not_admits_of_wide (wide : 2 ^ 32 ≤ perRelayConcurrency)
    (score : registry.score relay = 2 ^ 32 / perRelayConcurrency) (inUse : Nat) :
    registry.admits relay inUse perRelayConcurrency = false := by
  have positive : (perRelayConcurrency : Rat) ≠ 0 := by
    have some : perRelayConcurrency ≠ 0 := by omega
    exact_mod_cast some
  have share : (perRelayConcurrency * registry.score relay : Rat) = (2 ^ 32 : Nat) := by
    rw [score, mul_div_cancel₀ _ positive]
    norm_num
  have permits : registry.permits relay perRelayConcurrency = 2 ^ 32 := by
    rw [RelayHealthRegistry.permits, share, round_natCast]
    rfl
  simp [admits, permits]

end Permits

section Scores

variable {registry : RelayHealthRegistry} {relay other : String} {sample prev threshold : Rat} {now : Instant}

theorem score_update_self : (registry.update relay sample).score relay = registry.next sample (registry.score relay) := by
  simp [update, score]

section Average

/-- Where a sample weighs at most all, the next score grows with the last one. -/
theorem next_mono (bounded : registry.alpha ≤ 1) (sample : Rat) : Monotone (registry.next sample) := by
  intro left right order
  have weight : 0 ≤ registry.rounding (1 - registry.alpha) := Rounding.nonneg (by linarith)
  apply registry.rounding.monotone
  exact add_le_add (le_refl _) (registry.rounding.monotone (mul_le_mul_of_nonneg_left order weight))

theorem next_nonneg (positive : 0 ≤ registry.alpha) (bounded : registry.alpha ≤ 1) (sampled : 0 ≤ sample)
    (before : 0 ≤ prev) : 0 ≤ registry.next sample prev := by
  have weight : 0 ≤ registry.rounding (1 - registry.alpha) := Rounding.nonneg (by linarith)
  apply Rounding.nonneg
  exact add_nonneg (Rounding.nonneg (mul_nonneg positive sampled)) (Rounding.nonneg (mul_nonneg weight before))

theorem next_kept (registry : RelayHealthRegistry) (sample prev : Rat) :
    registry.rounding (registry.next sample prev) = registry.next sample prev := registry.rounding.kept _

/-- A failure leaves of the score what it weighs. -/
theorem next_zero (registry : RelayHealthRegistry) (prev : Rat) :
    registry.next 0 prev = registry.rounding (registry.rounding (1 - registry.alpha) * prev) := by
  rw [next, mul_zero, registry.rounding.zero, zero_add, registry.rounding.kept]

/-- It raises no score. -/
theorem next_zero_le (positive : 0 ≤ registry.alpha) (before : 0 ≤ prev) (held : registry.rounding prev = prev) :
    registry.next 0 prev ≤ prev := by
  have weight : registry.rounding (1 - registry.alpha) ≤ 1 := Rounding.le_one (by linarith)
  rw [next_zero]
  exact Rounding.le_of_le held (mul_le_of_le_one_left before weight)

theorem successSample_nonneg (registry : RelayHealthRegistry) (latency : Duration) : 0 ≤ registry.successSample latency := by
  have whole : (0 : Rat) ≤ registry.rounding ((latency / 1000000000 : Nat) : Rat) := Rounding.nonneg (Nat.cast_nonneg _)
  have rest : (0 : Rat) ≤ registry.rounding (((latency % 1000000000 : Nat) : Rat) / 1000000000) :=
    Rounding.nonneg (by positivity)
  have scaled : 0 ≤ registry.rounding (registry.asSecsF64 latency / latencyScaleSecs) := by
    apply Rounding.nonneg
    exact div_nonneg (Rounding.nonneg (add_nonneg whole rest)) (by norm_num [latencyScaleSecs])
  exact Rounding.nonneg (div_nonneg zero_le_one (Rounding.nonneg (by linarith)))

end Average

theorem next_exact (exact : registry.rounding = .exact) (sample prev : Rat) :
    registry.next sample prev = registry.alpha * sample + (1 - registry.alpha) * prev := by
  rw [next, exact]
  rfl

theorem score_update_of_ne (apart : relay ≠ other) : (registry.update other sample).score relay = registry.score relay := by
  simp [update, score, Function.update_of_ne apart]

theorem score_recordFetchHealth_of_ne (apart : relay ≠ other) (latency : Duration)
    (outcome : Except RelayError (List Event)) :
    (registry.recordFetchHealth other latency outcome).score relay = registry.score relay := by
  cases outcome with
  | ok events => exact score_update_of_ne apart
  | error error => cases error <;> exact score_update_of_ne apart

/-- Deciding an attempt changes no score. -/
theorem score_tryMarkAttempt : (registry.tryMarkAttempt other threshold now).2.score relay = registry.score relay := by
  rw [tryMarkAttempt_eq]
  split <;> rfl

/-- A relay whose last attempt is recent is routed to exactly if its score is high enough. -/
theorem tryMarkAttempt_recent (recent : registry.lastProbe relay = some last) (within : now - last < probeInterval) :
    (registry.tryMarkAttempt relay threshold now).1 = decide (threshold ≤ registry.score relay) := by
  have undue : registry.probeDue relay now = false := by
    simpa [probeDue, recent] using within
  by_cases healthy : threshold ≤ registry.score relay <;> simp [tryMarkAttempt, healthy, undue]

/-- Once an attempt was decided, the last attempt of its relay is recent. -/
theorem recent_tryMarkAttempt (registry : RelayHealthRegistry) (relay : String) (threshold : Rat) (now : Instant) :
    ∃ last, (registry.tryMarkAttempt relay threshold now).2.lastProbe relay = some last ∧
      now - last < probeInterval := by
  rw [tryMarkAttempt_eq]
  by_cases allowed : registry.routeAllowed relay threshold now = true
  · rw [if_pos allowed]
    refine ⟨now, by simp [markAttempt], ?_⟩
    rw [Nat.sub_self]
    exact Nat.mul_pos (by omega) (by omega)
  · rw [if_neg allowed]
    simp only [routeAllowed, probeDue, Bool.or_eq_true, not_or] at allowed
    cases recent : registry.lastProbe relay with
    | none => simp [recent] at allowed
    | some last => exact ⟨last, rfl, by simpa [recent] using allowed.2⟩

end Scores

end RelayHealthRegistry

end WotCrawler.Relay
