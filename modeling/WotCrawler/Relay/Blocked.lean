import WotCrawler.Relay.Notices

/-! What a `blocked` notice does to the routing of its relay. It is one sample of the moving
average, and whether that stops the relay depends on the score it finds. -/

namespace WotCrawler.Relay

open Numeric

variable {governor : Governor}

/-- The registries that the routing and the notices share, at an instant. -/
structure Routing (governor : Governor) where
  registries : SharedRegistries governor
  now : Instant

namespace Routing

def score (routing : Routing governor) (relay : String) : Rat := routing.registries.health.score relay

def tick (routing : Routing governor) (later : Instant) : Routing governor := { routing with now := later }

def withHealth (routing : Routing governor) (health : RelayHealthRegistry) : Routing governor :=
  { routing with registries := { routing.registries with health := health } }

def fetched (routing : Routing governor) (relay : String) (latency : Duration)
    (outcome : Except RelayError (List Event)) : Routing governor :=
  routing.withHealth (routing.registries.health.recordFetchHealth relay latency outcome)

def message (routing : Routing governor) (draw : Nat → Nat) (relay text : String) : Routing governor :=
  { routing with registries := handleRelayMessage routing.registries draw relay text }

def attempt (routing : Routing governor) (relay : String) (threshold : Rat) : Routing governor :=
  routing.withHealth (routing.registries.health.tryMarkAttempt relay threshold routing.now).2

def limited (routing : Routing governor) (limits : RateLimiterRegistry governor) : Routing governor :=
  { routing with registries := { routing.registries with limits := limits } }

/-- The relay is not routed to while its last attempt lies within the probe interval. -/
def Skips (routing : Routing governor) (relay : String) (threshold : Rat) : Prop :=
  ∀ last, routing.registries.health.lastProbe relay = some last → routing.now - last < probeInterval →
    (routing.registries.health.tryMarkAttempt relay threshold routing.now).1 = false

end Routing

/-- The steps of the shared registries: time passes, the outcome of a fetch is recorded, a message
is handled, an attempt is decided, and the rate limiter changes. A relay may be barred from
successes. -/
inductive RoutingStep (succeeds : String → Prop) (routing : Routing governor) : Routing governor → Prop where
  | tick (later : routing.now ≤ instant) : RoutingStep succeeds routing (routing.tick instant)
  | fetched (relay : String) (latency : Duration) (allowed : outcome.isOk = true → succeeds relay) :
      RoutingStep succeeds routing (routing.fetched relay latency outcome)
  | message (draw : Nat → Nat) (relay text : String) :
      RoutingStep succeeds routing (routing.message draw relay text)
  | attempt (relay : String) (threshold : Rat) : RoutingStep succeeds routing (routing.attempt relay threshold)
  | limited (limits : RateLimiterRegistry governor) : RoutingStep succeeds routing (routing.limited limits)

/-- The state of a daemon that has not fetched anything. -/
def Routing.fresh (limits : RateLimiterRegistry governor) (alpha : Rat) (start : Instant) : Routing governor :=
  ⟨⟨limits, .new .binary64 alpha⟩, start⟩

/-- After any steps, without a success of the relay, it is skipped. -/
def StaysSkipped (routing : Routing governor) (relay : String) (threshold : Rat) : Prop :=
  ∀ after, Relation.ReflTransGen (RoutingStep (· ≠ relay)) routing after → after.Skips relay threshold

/-- The relay's score is as it was, or took a sample of a failure or of a `rate-limited` notice. -/
def Degraded (relay : String) (before after : RelayHealthRegistry) : Prop :=
  after.score relay = before.score relay ∨
    ∃ sample, (sample = 0 ∨ sample = before.rounding (1 / 5)) ∧
      after.score relay = before.next sample (before.score relay)

namespace Degraded

variable {registry : RelayHealthRegistry} {relay other : String} {sample : Rat}

theorem refl (relay : String) (registry : RelayHealthRegistry) : Degraded relay registry registry := .inl rfl

theorem of_ne (apart : relay ≠ other) : Degraded relay registry (registry.update other sample) :=
  .inl (RelayHealthRegistry.score_update_of_ne apart)

theorem update (sampled : sample = 0 ∨ sample = registry.rounding (1 / 5)) :
    Degraded relay registry (registry.update other sample) := by
  by_cases same : relay = other
  · subst same
    exact .inr ⟨sample, sampled, RelayHealthRegistry.score_update_self⟩
  · exact of_ne same

theorem fetched (latency : Duration) (outcome : Except RelayError (List Event))
    (barred : outcome.isOk = true → other ≠ relay) :
    Degraded relay registry (registry.recordFetchHealth other latency outcome) := by
  cases outcome with
  | ok events => exact of_ne (barred rfl).symm
  | error error => cases error <;> exact update (.inl rfl)

end Degraded

variable {routing after : Routing governor} {relay text : String} {alpha threshold : Rat} {draw : Nat → Nat}

@[simp] theorem Routing.message_now (routing : Routing governor) (draw : Nat → Nat) (relay text : String) :
    (routing.message draw relay text).now = routing.now := by
  simp only [Routing.message]

theorem Degraded.message (routing : Routing governor) (draw : Nat → Nat) (relay other text : String) :
    Degraded relay routing.registries.health (routing.message draw other text).registries.health := by
  unfold Routing.message handleRelayMessage
  dsimp only
  split
  · exact update (.inr rfl)
  · exact update (.inl rfl)
  · exact refl relay _

/-- A relay that does not succeed is only degraded. -/
theorem RoutingStep.degraded (step : RoutingStep (· ≠ relay) routing after) :
    Degraded relay routing.registries.health after.registries.health := by
  cases step with
  | tick later => exact .refl relay _
  | fetched other latency barred => exact .fetched latency _ barred
  | message draw other text => exact .message _ draw relay other text
  | attempt other threshold => exact .inl RelayHealthRegistry.score_tryMarkAttempt
  | limited limits => exact .refl relay _

/-- The registry keeps `f64` scores that are not negative, at its smoothing factor. -/
structure KeepsScores (alpha : Rat) (registry : RelayHealthRegistry) : Prop where
  rounding : registry.rounding = .binary64
  alpha : registry.alpha = alpha
  held : ∀ relay, binary64 (registry.score relay) = registry.score relay
  nonneg : ∀ relay, 0 ≤ registry.score relay

namespace KeepsScores

variable {registry : RelayHealthRegistry} {other : String} {sample : Rat}

theorem new (alpha : Rat) : KeepsScores alpha (.new .binary64 alpha) where
  rounding := rfl
  alpha := rfl
  held := fun _ => Rounding.binary64.one
  nonneg := fun _ => zero_le_one

theorem update (keeps : KeepsScores alpha registry) (positive : 0 < alpha) (bounded : alpha ≤ 1) (sampled : 0 ≤ sample) :
    KeepsScores alpha (registry.update other sample) where
  rounding := keeps.rounding
  alpha := keeps.alpha
  held := fun relay => by
    by_cases same : relay = other
    · subst same
      rw [RelayHealthRegistry.score_update_self]
      have kept := registry.next_kept sample (registry.score relay)
      rwa [keeps.rounding] at kept
    · rw [RelayHealthRegistry.score_update_of_ne same]
      exact keeps.held relay
  nonneg := fun relay => by
    by_cases same : relay = other
    · subst same
      rw [RelayHealthRegistry.score_update_self]
      exact RelayHealthRegistry.next_nonneg (keeps.alpha ▸ positive.le) (keeps.alpha ▸ bounded) sampled (keeps.nonneg relay)
    · rw [RelayHealthRegistry.score_update_of_ne same]
      exact keeps.nonneg relay

theorem tryMarkAttempt (keeps : KeepsScores alpha registry) (threshold : Rat) (now : Instant) :
    KeepsScores alpha (registry.tryMarkAttempt other threshold now).2 := by
  rw [RelayHealthRegistry.tryMarkAttempt_eq]
  split
  · exact ⟨keeps.rounding, keeps.alpha, keeps.held, keeps.nonneg⟩
  · exact keeps

theorem step {succeeds : String → Prop} (keeps : KeepsScores alpha routing.registries.health) (positive : 0 < alpha)
    (bounded : alpha ≤ 1) (step : RoutingStep succeeds routing after) : KeepsScores alpha after.registries.health := by
  cases step with
  | tick later => exact keeps
  | @fetched outcome other latency allowed =>
    cases outcome with
    | ok events => exact keeps.update positive bounded (RelayHealthRegistry.successSample_nonneg _ latency)
    | error error => cases error <;> exact keeps.update positive bounded (le_refl _)
  | message draw other text =>
    unfold Routing.message handleRelayMessage
    dsimp only
    split
    · exact keeps.update positive bounded (Rounding.nonneg (by norm_num))
    · exact keeps.update positive bounded (le_refl _)
    · exact keeps
  | attempt other threshold => exact keeps.tryMarkAttempt threshold _
  | limited limits => exact keeps

theorem run {succeeds : String → Prop} (keeps : KeepsScores alpha routing.registries.health) (positive : 0 < alpha)
    (bounded : alpha ≤ 1) (run : Relation.ReflTransGen (RoutingStep succeeds) routing after) :
    KeepsScores alpha after.registries.health := by
  induction run with
  | refl => exact keeps
  | tail _ step ih => exact ih.step positive bounded step

end KeepsScores

/-- What the sample of a `rate-limited` notice makes of a score. -/
def nudge (alpha score : Rat) : Rat :=
  binary64 (binary64 (alpha * binary64 (1 / 5)) + binary64 (binary64 (1 - alpha) * score))

/-- A bound that such a sample does not raise holds whatever degrades the relay. -/
theorem Degraded.le_bound {before after : RelayHealthRegistry} (degraded : Degraded relay before after)
    (keeps : KeepsScores alpha before) (positive : 0 < alpha) (bounded : alpha ≤ 1) (level : nudge alpha bound ≤ bound)
    (below : before.score relay ≤ bound) : after.score relay ≤ bound := by
  rcases degraded with same | ⟨sample, rfl | rfl, moved⟩
  · rwa [same]
  · rw [moved]
    have held : before.rounding (before.score relay) = before.score relay := by
      rw [keeps.rounding]
      exact keeps.held relay
    exact (RelayHealthRegistry.next_zero_le (keeps.alpha ▸ positive.le) (keeps.nonneg relay) held).trans below
  · rw [moved]
    calc before.next (before.rounding (1 / 5)) (before.score relay)
        ≤ before.next (before.rounding (1 / 5)) bound :=
          RelayHealthRegistry.next_mono (keeps.alpha ▸ bounded) _ below
      _ = nudge alpha bound := by
          rw [RelayHealthRegistry.next, keeps.rounding, keeps.alpha]
          rfl
      _ ≤ bound := level

/-- A relay that is skipped soon after an attempt is below the threshold. -/
theorem Routing.Skips.below (skips : routing.Skips relay threshold)
    (recent : routing.registries.health.lastProbe relay = some last) (within : routing.now - last < probeInterval) :
    routing.score relay < threshold := by
  have refused := skips last recent within
  rw [RelayHealthRegistry.tryMarkAttempt_recent recent within] at refused
  exact not_le.mp (of_decide_eq_false refused)

theorem staysSkipped_of_bound (keeps : KeepsScores alpha routing.registries.health) (positive : 0 < alpha)
    (bounded : alpha ≤ 1) (below : routing.score relay ≤ bound) (short : bound < threshold)
    (level : nudge alpha bound ≤ bound) : StaysSkipped routing relay threshold := by
  intro after run
  have stays : KeepsScores alpha after.registries.health ∧ after.score relay ≤ bound := by
    induction run with
    | refl => exact ⟨keeps, below⟩
    | tail _ step ih => exact ⟨ih.1.step positive bounded step, step.degraded.le_bound ih.1 positive bounded level ih.2⟩
  intro last recent within
  rw [RelayHealthRegistry.tryMarkAttempt_recent recent within]
  exact decide_eq_false (not_le.mpr (stays.2.trans_lt short))

private theorem slowDown_rateLimited : classifyNotice slowDown = .rateLimited := by decide

/-- So many `rate-limited` notices, and no time. -/
private theorem nudged (keeps : KeepsScores alpha routing.registries.health) (positive : 0 < alpha) (bounded : alpha ≤ 1)
    (relay : String) (count : Nat) :
    ∃ after, Relation.ReflTransGen (RoutingStep (· ≠ relay)) routing after ∧ after.now = routing.now ∧
      after.registries.health.lastProbe = routing.registries.health.lastProbe ∧
      after.score relay = (nudge alpha)^[count] (routing.score relay) := by
  induction count with
  | zero => exact ⟨routing, .refl, rfl, rfl, rfl⟩
  | succ count ih =>
    obtain ⟨before, run, now, probes, score⟩ := ih
    have stays := keeps.run positive bounded run
    have health : (before.message (fun _ => 0) relay slowDown).registries.health =
        before.registries.health.update relay (before.registries.health.rounding (1 / 5)) := by
      simp [Routing.message, handleRelayMessage, slowDown_rateLimited, RelayHealthRegistry.recordRateLimited]
    refine ⟨_, run.tail (.message (fun _ => 0) relay slowDown), by rw [Routing.message_now, now], ?_, ?_⟩
    · rw [health]
      exact probes
    · rw [Function.iterate_succ_apply', ← score, Routing.score, health, RelayHealthRegistry.score_update_self,
        RelayHealthRegistry.next, stays.rounding, stays.alpha]
      rfl

/-- What keeps rising without a stop rises past every threshold, by the smallest number each time. -/
private theorem exists_level (start threshold : Rat) (held : ∃ count : Int, start = count * smallest)
    (below : ∀ count, (nudge alpha)^[count] start < threshold) :
    ∃ bound, start ≤ bound ∧ bound < threshold ∧ nudge alpha bound ≤ bound := by
  by_contra rises
  push Not at rises
  have grain := smallest_pos
  have climbs (count : Nat) : (∃ whole : Int, (nudge alpha)^[count] start = whole * smallest) ∧
      start + count * smallest ≤ (nudge alpha)^[count] start := by
    induction count with
    | zero => exact ⟨held, by simp⟩
    | succ count ih =>
      obtain ⟨⟨whole, same⟩, high⟩ := ih
      have above : start ≤ (nudge alpha)^[count] start := by
        have more : (0 : Rat) ≤ count * smallest := by positivity
        linarith
      have more := rises _ above (below count)
      obtain ⟨next, held⟩ := binary64_multiple
        (binary64 (alpha * binary64 (1 / 5)) + binary64 (binary64 (1 - alpha) * (nudge alpha)^[count] start))
      rw [Function.iterate_succ_apply']
      refine ⟨⟨next, held⟩, ?_⟩
      have raised : nudge alpha ((nudge alpha)^[count] start) = next * smallest := held
      rw [raised] at more ⊢
      rw [same] at more high
      have step : whole + 1 ≤ next := by
        have fewer : (whole : Rat) < next := lt_of_mul_lt_mul_right more grain.le
        exact_mod_cast fewer
      have scaled : ((whole + 1 : Int) : Rat) * smallest ≤ next * smallest :=
        mul_le_mul_of_nonneg_right (Int.cast_le.mpr step) grain.le
      push_cast at scaled ⊢
      linarith
  obtain ⟨count, many⟩ := exists_nat_gt ((threshold - start) / smallest)
  have passed : threshold - start < count * smallest := (div_lt_iff₀ grain).mp many
  have high := (climbs count).2
  have low := below count
  linarith

/-- Of a relay that stays skipped, the score is bounded so. -/
theorem bound_of_staysSkipped (keeps : KeepsScores alpha routing.registries.health) (positive : 0 < alpha)
    (bounded : alpha ≤ 1) (skipped : StaysSkipped routing relay threshold) :
    ∃ bound, routing.score relay ≤ bound ∧ bound < threshold ∧ nudge alpha bound ≤ bound := by
  obtain ⟨last, recent, within⟩ :=
    routing.registries.health.recent_tryMarkAttempt relay threshold routing.now
  have attempted : Relation.ReflTransGen (RoutingStep (· ≠ relay)) routing (routing.attempt relay threshold) :=
    .single (.attempt relay threshold)
  have score : (routing.attempt relay threshold).score relay = routing.score relay :=
    RelayHealthRegistry.score_tryMarkAttempt
  have attemptedKeeps : KeepsScores alpha (routing.attempt relay threshold).registries.health :=
    keeps.tryMarkAttempt threshold routing.now
  have marked : (routing.attempt relay threshold).registries.health.lastProbe relay = some last := recent
  apply exists_level
  · obtain ⟨count, whole⟩ := binary64_multiple (routing.score relay)
    exact ⟨count, (keeps.held relay).symm.trans whole⟩
  · intro count
    obtain ⟨after, run, now, probes, raised⟩ :=
      nudged attemptedKeeps positive bounded relay count
    have stays : after.registries.health.lastProbe relay = some last := (congrFun probes relay).trans marked
    have soon : after.now - last < probeInterval := now ▸ within
    have low := (skipped after (attempted.trans run)).below stays soon
    rw [raised] at low
    exact score ▸ low

private theorem score_blocked (keeps : KeepsScores alpha routing.registries.health) (blocked : classifyNotice text = .blocked) :
    (routing.message draw relay text).score relay = binary64 (binary64 (1 - alpha) * routing.score relay) := by
  have health : (routing.message draw relay text).registries.health = routing.registries.health.update relay 0 := by
    simp [Routing.message, handleRelayMessage, blocked, RelayHealthRegistry.recordConnectFailure]
  rw [Routing.score, health, RelayHealthRegistry.score_update_self, RelayHealthRegistry.next_zero, keeps.rounding, keeps.alpha]
  rfl

/-- In every reachable state, a `blocked` notice keeps its relay from being routed to exactly where
the one sample takes the score to a bound below the threshold that later notices do not raise. -/
theorem blocked_skipped_iff (limits : RateLimiterRegistry governor) (start : Instant) (positive : 0 < alpha)
    (bounded : alpha ≤ 1)
    (run : Relation.ReflTransGen (RoutingStep fun _ => True) (.fresh limits alpha start) routing)
    (draw : Nat → Nat) (relay : String) (blocked : classifyNotice text = .blocked) (threshold : Rat) :
    StaysSkipped (routing.message draw relay text) relay threshold ↔
      ∃ bound, binary64 (binary64 (1 - alpha) * routing.score relay) ≤ bound ∧ bound < threshold ∧
        nudge alpha bound ≤ bound := by
  have before : KeepsScores alpha routing.registries.health := (KeepsScores.new alpha).run positive bounded run
  have noticed : RoutingStep (fun _ => True) routing (routing.message draw relay text) := .message draw relay text
  have after : KeepsScores alpha (routing.message draw relay text).registries.health :=
    before.step positive bounded noticed
  have score : (routing.message draw relay text).score relay = binary64 (binary64 (1 - alpha) * routing.score relay) :=
    score_blocked before blocked
  rw [← score]
  constructor
  · exact bound_of_staysSkipped after positive bounded
  · intro ⟨bound, below, short, level⟩
    exact staysSkipped_of_bound after positive bounded below short level

section Example

/-- The daemon's limiter by default. -/
private def limits : RateLimiterRegistry gcra :=
  .withParams defaultReqsPerSecond defaultBackoffBase defaultBackoffCap

def goAway : String := "blocked: go away"

private theorem goAway_blocked : classifyNotice goAway = .blocked := by decide

/-- Where one sample weighs enough, the notice stops its relay. -/
theorem blocked_skipped_heavy :
    StaysSkipped ((Routing.fresh limits (binary64 (9 / 10)) 0).message (fun _ => 0) "wss://relay" goAway)
      "wss://relay" (1 / 4) := by
  have positive : 0 < binary64 (9 / 10) := by decide +kernel
  have bounded : binary64 (9 / 10) ≤ 1 := by decide +kernel
  have score : (Routing.fresh limits (binary64 (9 / 10)) 0).score "wss://relay" = 1 := rfl
  refine (blocked_skipped_iff limits 0 positive bounded .refl (fun _ => 0) "wss://relay" goAway_blocked (1 / 4)).mpr
    ⟨6 / 25, ?_, by norm_num, by decide +kernel⟩
  rw [score]
  decide +kernel

/-- By default it does not: a relay that was just asked is routed to at once. -/
theorem blocked_routed : ¬ ∀ (alpha threshold : Rat) (routing : Routing gcra) (relay text : String),
    0 < alpha → alpha ≤ 1 → 0 < threshold → threshold ≤ 1 →
    Relation.ReflTransGen (RoutingStep fun _ => True) (.fresh limits alpha 0) routing →
    classifyNotice text = .blocked → StaysSkipped (routing.message (fun _ => 0) relay text) relay threshold := by
  intro skipped
  have stays := skipped (binary64 (3 / 10)) (1 / 4) _ "wss://relay" goAway (by decide +kernel) (by decide +kernel)
    (by norm_num) (by norm_num) (.single (.attempt "wss://relay" (1 / 4))) goAway_blocked
  have health : (((Routing.fresh limits (binary64 (3 / 10)) 0).attempt "wss://relay" (1 / 4)).message (fun _ => 0)
      "wss://relay" goAway).registries.health =
        ((RelayHealthRegistry.new .binary64 (binary64 (3 / 10))).markAttempt "wss://relay" 0).update "wss://relay" 0 := by
    simp [Routing.message, handleRelayMessage, goAway_blocked, Routing.attempt, Routing.withHealth, Routing.fresh,
      RelayHealthRegistry.tryMarkAttempt_eq, RelayHealthRegistry.routeAllowed, RelayHealthRegistry.probeDue,
      RelayHealthRegistry.new, RelayHealthRegistry.recordConnectFailure]
  have recent : (((RelayHealthRegistry.new .binary64 (binary64 (3 / 10))).markAttempt "wss://relay" 0).update "wss://relay"
      0).lastProbe "wss://relay" = some 0 := by simp [RelayHealthRegistry.markAttempt, RelayHealthRegistry.update]
  have low := (stays _ .refl).below (health ▸ recent) (Nat.mul_pos (by omega) (by omega))
  have high : (1 : Rat) / 4 ≤ (((RelayHealthRegistry.new .binary64 (binary64 (3 / 10))).markAttempt "wss://relay"
      0).update "wss://relay" 0).score "wss://relay" := by decide +kernel
  rw [Routing.score, health] at low
  exact absurd high (not_le.mpr low)

end Example

end WotCrawler.Relay
